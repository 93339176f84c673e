import QueryOptions.Proofs.Modifiers
import QueryOptions.Proofs.Origin
import QueryOptions.Proofs.SharedNames

namespace QueryOptions

/-! What the naming linter warns of. It looks once at the name of every operation, and at the two
names of every option and of every member of a structure inside it, and warns of those that do not
have the form of their kind. -/

/-! Options and members by their places. -/

/-- The last step of a trail leads to an option or to the member of a structure. -/
def Trail.EndsInMember (trail : Trail) : Prop := ∃ wire, trail.getLast? = some (.member wire)

section Trail

variable {branch : Branch} {trail : Trail} {wire : Text}

theorem Trail.EndsInMember.ne_nil (ends : Trail.EndsInMember trail) : trail ≠ [] := by
  rintro rfl
  obtain ⟨wire, none⟩ := ends
  cases none

theorem Trail.endsInMember_cons (below : trail ≠ []) :
    Trail.EndsInMember (branch :: trail) ↔ Trail.EndsInMember trail := by
  obtain ⟨next, rest, rfl⟩ := List.exists_cons_of_ne_nil below
  simp only [Trail.EndsInMember, List.getLast?_cons_cons]

theorem Trail.endsInMember_element :
    Trail.EndsInMember (.element :: trail) ↔ Trail.EndsInMember trail := by
  cases trail with
  | nil => simp [Trail.EndsInMember]
  | cons next rest => exact Trail.endsInMember_cons (List.cons_ne_nil next rest)

theorem Trail.endsInMember_member :
    Trail.EndsInMember (.member wire :: trail) ↔ trail = [] ∨ Trail.EndsInMember trail := by
  cases trail with
  | nil => simp [Trail.EndsInMember]
  | cons next rest =>
      rw [Trail.endsInMember_cons (List.cons_ne_nil next rest), or_iff_right]
      exact List.cons_ne_nil next rest

end Trail

namespace NamingLint

/-- An option, or the member of a structure inside one, with its place and with how findings name
what it belongs to. -/
structure PlacedOption where
  owner : Text
  trail : Trail
  node : Node

namespace PlacedOption

/-- The same, seen from one step further out. -/
def under (branch : Branch) (option : PlacedOption) : PlacedOption :=
  { option with trail := branch :: option.trail }

end PlacedOption

mutual

/-- The members of the structure that a node holds, perhaps as the member of a list, and what stands
inside them. -/
def placedWithin (owner : Text) (wire : WireName) : Node → List PlacedOption
  | .scalar _ _ => []
  | .list _ member _ => (placedWithin owner wire member).map (.under .element)
  | .structure _ members => placedAt (structureOwner wire owner) members

/-- The nodes of one level, and what stands inside them. -/
def placedAt (owner : Text) : List Node → List PlacedOption
  | [] => []
  | node :: rest =>
      ⟨owner, [.member node.wire.text], node⟩ ::
          (placedWithin owner node.wire node).map (.under (.member node.wire.text)) ++
        placedAt owner rest

end

/-- The node stands at the trail among the options. -/
def Places (options : List PlacedOption) (trail : Trail) (node : Node) : Prop :=
  ∃ option ∈ options, option.trail = trail ∧ option.node = node

section Places

variable {options others : List PlacedOption} {trail : Trail} {node found : Node} {owner : Text}
  {nodes : List Node} {heading : Heading}

theorem places_append :
    Places (options ++ others) trail found ↔ Places options trail found ∨ Places others trail found := by
  simp only [Places, List.mem_append, or_and_right, exists_or]

theorem places_under {branch : Branch} : Places (options.map (.under branch)) trail found ↔
    ∃ rest, trail = branch :: rest ∧ Places options rest found := by
  constructor
  · rintro ⟨_, inside, rfl, rfl⟩
    obtain ⟨option, known, rfl⟩ := List.mem_map.mp inside
    exact ⟨option.trail, rfl, option, known, rfl, rfl⟩
  · rintro ⟨_, rfl, option, known, rfl, rfl⟩
    exact ⟨_, List.mem_map_of_mem known, rfl, rfl⟩

theorem places_placedAt : Places (placedAt owner nodes) trail found ↔ ∃ node ∈ nodes, ∃ rest,
    trail = .member node.wire.text :: rest ∧
      (rest = [] ∧ found = node ∨ Places (placedWithin owner node.wire node) rest found) := by
  induction nodes with
  | nil => simp [placedAt, Places]
  | cons node nodes ih =>
      rw [placedAt, ← List.singleton_append, List.append_assoc, places_append, places_append,
        places_under, ih, List.exists_mem_cons_iff, ← or_assoc]
      refine or_congr_left ?_
      constructor
      · rintro (⟨option, inside, rfl, rfl⟩ | ⟨rest, rfl, below⟩)
        · obtain rfl := List.mem_singleton.mp inside
          exact ⟨[], rfl, .inl ⟨rfl, rfl⟩⟩
        · exact ⟨rest, rfl, .inr below⟩
      · rintro ⟨rest, rfl, ⟨rfl, rfl⟩ | below⟩
        · exact .inl ⟨_, List.mem_singleton_self _, rfl, rfl⟩
        · exact .inr ⟨rest, rfl, below⟩

/-- At a level stands what stands inside one of its nodes. -/
theorem places_placedAt_iff
    (below : ∀ node ∈ nodes, ∀ trail, Places (placedWithin owner node.wire node) trail found ↔
      node.Stands trail found ∧ Trail.EndsInMember trail) :
    Places (placedAt owner nodes) trail found ↔
      (Node.structure heading nodes).Stands trail found ∧ Trail.EndsInMember trail := by
  rw [places_placedAt]
  constructor
  · rintro ⟨node, inside, rest, rfl, ⟨rfl, rfl⟩ | deeper⟩
    · exact ⟨.member inside .here, Trail.endsInMember_member.mpr (.inl rfl)⟩
    · obtain ⟨stands, ends⟩ := (below node inside rest).mp deeper
      exact ⟨.member inside stands, Trail.endsInMember_member.mpr (.inr ends)⟩
  · rintro ⟨stands, ends⟩
    cases stands with
    | here => exact absurd rfl ends.ne_nil
    | @member _ _ node rest _ inside deeper =>
        refine ⟨node, inside, rest, rfl, ?_⟩
        rcases Trail.endsInMember_member.mp ends with rfl | endsBelow
        · cases deeper
          exact .inl ⟨rfl, rfl⟩
        · exact .inr ((below node inside rest).mpr ⟨deeper, endsBelow⟩)

theorem places_placedWithin_iff (node : Node) (owner : Text) (wire : WireName) (trail : Trail) :
    Places (placedWithin owner wire node) trail found ↔
      node.Stands trail found ∧ Trail.EndsInMember trail := by
  induction node generalizing owner wire trail with
  | scalar heading leaf =>
      constructor
      · rintro ⟨option, inside, -⟩
        exact absurd inside List.not_mem_nil
      · rintro ⟨stands, ends⟩
        cases stands
        exact absurd rfl ends.ne_nil
  | list heading member join ih =>
      rw [placedWithin, places_under]
      constructor
      · rintro ⟨rest, rfl, deeper⟩
        obtain ⟨stands, ends⟩ := (ih owner wire rest).mp deeper
        exact ⟨.element stands, Trail.endsInMember_element.mpr ends⟩
      · rintro ⟨stands, ends⟩
        cases stands with
        | here => exact absurd rfl ends.ne_nil
        | element deeper =>
            exact ⟨_, rfl, (ih owner wire _).mpr ⟨deeper, Trail.endsInMember_element.mp ends⟩⟩
  | members heading nodes ih =>
      exact places_placedAt_iff fun node inside trail => ih node inside _ node.wire trail

/-! No place is listed twice. -/

theorem trails_under (branch : Branch) (options : List PlacedOption) :
    (options.map (.under branch)).map PlacedOption.trail =
      (options.map PlacedOption.trail).map (branch :: ·) := by
  rw [List.map_map, List.map_map]
  rfl

theorem exists_places {option : PlacedOption} (inside : option ∈ options) :
    Places options option.trail option.node := ⟨option, inside, rfl, rfl⟩

theorem nodup_placedAt (distinct : DistinctWires nodes)
    (below : ∀ node ∈ nodes, ((placedWithin owner node.wire node).map PlacedOption.trail).Nodup) :
    ((placedAt owner nodes).map PlacedOption.trail).Nodup := by
  induction nodes with
  | nil => exact List.nodup_nil
  | cons node rest ih =>
      obtain ⟨fresh, distinctRest⟩ := List.nodup_cons.mp distinct
      obtain ⟨here, later⟩ := List.forall_mem_cons.mp below
      have longer : [Branch.member node.wire.text] ∉
          ((placedWithin owner node.wire node).map PlacedOption.trail).map
            (.member node.wire.text :: ·) := by
        intro inside
        obtain ⟨trail, known, same⟩ := List.mem_map.mp inside
        obtain ⟨option, placed, rfl⟩ := List.mem_map.mp known
        have ends := ((places_placedWithin_iff _ _ _ _).mp (exists_places placed)).2
        exact ends.ne_nil (List.cons.inj same).2
      rw [placedAt, List.map_append, List.map_cons, trails_under]
      refine List.nodup_append.mpr ⟨List.nodup_cons.mpr ⟨longer, ?_⟩, ih distinctRest later, ?_⟩
      · exact here.map fun left right same => (List.cons.inj same).2
      · -- the first step of a trail tells the node of the level that it passes
        rintro trail first _ second rfl
        have begins : trail.head? = some (.member node.wire.text) := by
          rcases List.mem_cons.mp first with rfl | inside
          · rfl
          · obtain ⟨tail, -, rfl⟩ := List.mem_map.mp inside
            rfl
        obtain ⟨option, placed, rfl⟩ := List.mem_map.mp second
        obtain ⟨other, known, tail, begun, -⟩ := places_placedAt.mp (exists_places placed)
        rw [begun, List.head?_cons, Option.some.injEq, Branch.member.injEq] at begins
        exact fresh (List.mem_map.mpr ⟨other, known, begins⟩)

theorem nodup_placedWithin (node : Node) (owner : Text) (wire : WireName)
    (distinct : node.Everywhere DistinctWires) :
    ((placedWithin owner wire node).map PlacedOption.trail).Nodup := by
  induction node generalizing owner wire with
  | scalar heading leaf => exact List.nodup_nil
  | list heading member join ih =>
      rw [placedWithin, trails_under]
      exact (ih owner wire (Node.everywhere_list.mp distinct)).map
        fun left right same => (List.cons.inj same).2
  | members heading nodes ih =>
      obtain ⟨level, below⟩ := Node.everywhere_structure.mp distinct
      exact nodup_placedAt level fun node inside => ih node inside _ node.wire (below node inside)

end Places

/-! Binding names are made by the rule for them, and have no line feed. -/

def BindingsMade (level : List Node) : Prop :=
  ∀ node ∈ level, ∃ name, node.binding = Naming.bindingName name

theorem bindingMade_extend {node : Node} (made : ∃ name, node.binding = Naming.bindingName name)
    (block : List Descriptor) : ∃ name, (node.extend block).binding = Naming.bindingName name := by
  rw [Node.binding, Node.heading_extend, Heading.binding_foldl_apply]
  cases (block.filterMap Descriptor.target?).getLast? with
  | none => exact made
  | some target => exact ⟨target, rfl⟩

theorem bindingsMade_declareIn (level : List Node) (named : NamedBlock)
    (made : BindingsMade level) : BindingsMade (declareIn level named) := by
  intro node inside
  rcases mem_putNode inside with rfl | known
  · refine bindingMade_extend ?_ named.2
    cases found : findWire? named.1.text level with
    | none => exact ⟨named.1.text, rfl⟩
    | some first => exact made first (mem_of_findWire? found)
  · exact made node known

theorem exists_level {node found : Node} {trail : Trail} (stands : node.Stands trail found)
    (ends : Trail.EndsInMember trail) : ∃ level, node.HasLevel level ∧ found ∈ level := by
  induction stands with
  | here => exact absurd rfl ends.ne_nil
  | @member _ members member rest found inside deeper ih =>
      rcases Trail.endsInMember_member.mp ends with rfl | below
      · cases deeper
        exact ⟨members, .here, inside⟩
      · obtain ⟨level, has, known⟩ := ih below
        exact ⟨level, .member inside has, known⟩
  | element _ ih =>
      obtain ⟨level, has, known⟩ := ih (Trail.endsInMember_element.mp ends)
      exact ⟨level, .element has, known⟩

/-! Warnings. -/

/-- A name that the naming linter looks at. -/
inductive LintedName where
  | operation (name : Value)
  | wire (option : PlacedOption)
  | binding (option : PlacedOption)

namespace LintedName

/-- The name has the form that is asked of it. A line feed at the end is let pass, save in binding
names, which have none. -/
def Fits : LintedName → Prop
  | .operation name => ∃ text, name.text? = some text ∧ Naming.OnLine Naming.IsPascal text
  | .wire option => Naming.OnLine Naming.IsPascal option.node.wire.text
  | .binding option => Naming.IsSnake option.node.binding

/-- The warning that a name has another form. -/
def warning (location : SourceLocation) : LintedName → Finding
  | .operation name => .located .warning location
      ("Operation name '" ++ name.shown ++
        "' should be in PascalCase format (e.g., 'DescribeInstances', 'PutObject')")
  | .wire option => .located .warning location
      ("Option name '" ++ option.node.wire.spelling ++ "' of " ++ option.owner ++
        " should be in PascalCase format (e.g., 'MaxResults', 'InstanceId')")
  | .binding option => .located .warning location
      ("Binding name '" ++ option.node.binding ++ "' of option '" ++ option.node.wire.spelling ++
        "' in " ++ option.owner ++ " should be in snake_case format")

theorem fits_operation_iff {name : Value} :
    (LintedName.operation name).Fits ↔ name.isPascalCase = true := by
  rw [Fits, Value.isPascalCase]
  cases name.text? <;> simp [Naming.isPascalCase_iff]

instance (name : LintedName) : Decidable name.Fits :=
  match name with
  | .operation name => decidable_of_iff (name.isPascalCase = true) fits_operation_iff.symm
  | .wire option => inferInstanceAs (Decidable (Naming.OnLine Naming.IsPascal option.node.wire.text))
  | .binding option => inferInstanceAs (Decidable (Naming.IsSnake option.node.binding))

end LintedName

/-- The options of an operation, with what stands inside them. -/
def optionsOf (operation : Value × Schema) : List PlacedOption :=
  placedAt ("operation " ++ operation.1.shown) operation.2.options

/-- The names of an operation and of its options. -/
def namesOf (operation : Value × Schema) : List LintedName :=
  .operation operation.1 :: (optionsOf operation).flatMap fun option => [.wire option, .binding option]

/-- Where the findings of an operation stand. -/
def locationOf (catalog : Catalog) (sources : Option SourceMap) (operation : Value × Schema) :
    SourceLocation :=
  .locate sources (some (OperationSource.pointer operation.1)) catalog.file

section Options

variable {operation : Value × Schema} {owner : Text} {location : SourceLocation}
  {earlier nodes : List Node}

theorem places_optionsOf_iff {trail : Trail} {node : Node} :
    Places (optionsOf operation) trail node ↔
      operation.2.root.Stands trail node ∧ Trail.EndsInMember trail :=
  places_placedAt_iff fun node _ trail => places_placedWithin_iff node _ node.wire trail

theorem nodup_optionsOf (reachable : operation.2.Reachable) :
    ((optionsOf operation).map PlacedOption.trail).Nodup :=
  nodup_placedAt reachable.distinctWires.1 fun node inside =>
    nodup_placedWithin node _ node.wire (reachable.distinctWires.2 node inside)

theorem mem_optionsOf_of_binding {option : PlacedOption}
    (inside : .binding option ∈ namesOf operation) : option ∈ optionsOf operation := by
  simpa [namesOf] using inside

theorem wire_mem_namesOf {option : PlacedOption} (inside : option ∈ optionsOf operation) :
    .wire option ∈ namesOf operation := by
  simpa [namesOf] using inside

theorem bindingMade_of_mem_optionsOf (reachable : operation.2.Reachable) {option : PlacedOption}
    (inside : option ∈ optionsOf operation) :
    ∃ name, option.node.binding = Naming.bindingName name := by
  obtain ⟨stands, ends⟩ := places_optionsOf_iff.mp (exists_places inside)
  obtain ⟨level, has, known⟩ := exists_level stands ends
  have made : operation.2.root.Everywhere BindingsMade :=
    Node.everywhere_structure.mpr (reachable.allLevels nofun bindingsMade_declareIn)
  exact made level has option.node known

def optionWarnings (location : SourceLocation) (option : PlacedOption) : List Finding :=
  nameFindings option.owner location option.node

theorem filter_sharedFindings (node : Node) :
    (sharedFindings owner location earlier node).filter Finding.isWarning = [] := by
  unfold sharedFindings
  split <;> rfl

theorem filter_nameFindings (node : Node) :
    (nameFindings owner location node).filter Finding.isWarning =
      nameFindings owner location node := by
  unfold nameFindings
  dsimp only
  split <;> split <;> rfl

theorem filter_levelFindings_of (below : ∀ node ∈ nodes,
      (structureFindings owner location node.wire node).filter Finding.isWarning =
        (placedWithin owner node.wire node).flatMap (optionWarnings location)) :
    (levelFindings owner location earlier nodes).filter Finding.isWarning =
      (placedAt owner nodes).flatMap (optionWarnings location) := by
  induction nodes generalizing earlier with
  | nil => rfl
  | cons node rest ih =>
      obtain ⟨here, later⟩ := List.forall_mem_cons.mp below
      have moved : ((placedWithin owner node.wire node).map
          (.under (.member node.wire.text))).flatMap (optionWarnings location) =
            (placedWithin owner node.wire node).flatMap (optionWarnings location) :=
        List.flatMap_map _ _ _
      rw [levelFindings, List.filter_append, List.filter_append, List.filter_append,
        filter_nameFindings, filter_sharedFindings, here, ih later, List.append_nil, placedAt,
        List.flatMap_append, List.flatMap_cons, moved]
      rfl

theorem filter_structureFindings (node : Node) (owner : Text) (wire : WireName) :
    (structureFindings owner location wire node).filter Finding.isWarning =
      (placedWithin owner wire node).flatMap (optionWarnings location) := by
  induction node generalizing owner wire with
  | scalar heading leaf => rfl
  | list heading member join ih =>
      rw [structureFindings, ih, placedWithin, List.flatMap_map]
      rfl
  | members heading nodes ih =>
      exact filter_levelFindings_of fun node inside => ih node inside _ node.wire

theorem warned_of_fits_iff {name : LintedName} {fine : Bool} (fits : name.Fits ↔ fine = true) :
    (if fine = true then [] else [name.warning location]) =
      ([name].filter fun name => ¬ name.Fits).map (LintedName.warning location) := by
  cases fine <;> simp [fits]

theorem LintedName.fits_binding_iff {option : PlacedOption}
    (made : ∃ name, option.node.binding = Naming.bindingName name) :
    (LintedName.binding option).Fits ↔ Naming.isSnakeCase option.node.binding = true := by
  obtain ⟨name, same⟩ := made
  rw [Fits, same]
  exact Naming.isSnakeCase_bindingName_iff.symm

/-- An option is warned of those of its names that have another form. -/
theorem optionWarnings_eq {option : PlacedOption}
    (made : ∃ name, option.node.binding = Naming.bindingName name) :
    optionWarnings location option = (([.wire option, .binding option] : List LintedName).filter
      fun name => ¬ name.Fits).map (LintedName.warning location) := by
  have wire : (LintedName.wire option).Fits ↔
      Naming.isPascalCase option.node.wire.text = true := Naming.isPascalCase_iff.symm
  rw [← List.singleton_append, List.filter_append, List.map_append,
    ← warned_of_fits_iff (LintedName.fits_binding_iff made), ← warned_of_fits_iff wire]
  rfl

theorem filter_operationFindings (reachable : operation.2.Reachable) :
    (operationFindings location operation.1 operation.2).filter Finding.isWarning =
      ((namesOf operation).filter fun name => ¬ name.Fits).map (LintedName.warning location) := by
  have below : (levelFindings ("operation " ++ operation.1.shown) location [] operation.2.options).filter
      Finding.isWarning = (optionsOf operation).flatMap (optionWarnings location) :=
    filter_levelFindings_of fun node _ => filter_structureFindings node _ node.wire
  have names : namesOf operation = [.operation operation.1] ++
      (optionsOf operation).flatMap fun option => [.wire option, .binding option] := rfl
  have options : (optionsOf operation).flatMap (optionWarnings location) = _ :=
    List.flatMap_congr fun option inside =>
      optionWarnings_eq (bindingMade_of_mem_optionsOf reachable inside)
  rw [operationFindings, List.filter_append, below, options, names, List.filter_append,
    List.map_append, ← warned_of_fits_iff LintedName.fits_operation_iff, List.filter_flatMap,
    List.map_flatMap]
  cases operation.1.isPascalCase <;> rfl

end Options

theorem filter_findings {catalog : Catalog} (sources : Option SourceMap)
    (reachable : ∀ operation ∈ catalog.operations, operation.2.Reachable) :
    (findings catalog sources).filter Finding.isWarning =
      catalog.operations.flatMap fun operation =>
        ((namesOf operation).filter fun name => ¬ name.Fits).map
          (LintedName.warning (locationOf catalog sources operation)) := by
  rw [findings, List.filter_flatMap]
  exact List.flatMap_congr fun operation inside => filter_operationFindings (reachable operation inside)

/-- A finding is a warning just if it is that on a name of another form. -/
theorem warned_iff {catalog : Catalog} (sources : Option SourceMap)
    (reachable : ∀ operation ∈ catalog.operations, operation.2.Reachable) {finding : Finding} :
    finding ∈ findings catalog sources ∧ finding.isWarning = true ↔
      ∃ operation ∈ catalog.operations, ∃ name ∈ namesOf operation, ¬ name.Fits ∧
        name.warning (locationOf catalog sources operation) = finding := by
  rw [← List.mem_filter, filter_findings sources reachable]
  simp [and_assoc]

/-- Linting the names of a loaded catalog adds, operation by operation, one warning for each name
that does not have the form asked of it, and no other warning. The names are that of the operation
and the two of each option and of each member of a structure, at any depth, each once. -/
theorem warnings_of_findings {document : CatalogDocument} {catalog : Catalog}
    (loaded : document.load = .ok catalog) (sources : Option SourceMap) :
    (∀ result : LintResult,
      (LintResult.mk result.file (result.findings ++ findings catalog sources)).warnings =
        result.warnings ++ catalog.operations.flatMap fun operation =>
          ((namesOf operation).filter fun name => ¬ name.Fits).map
            (LintedName.warning (locationOf catalog sources operation))) ∧
    ∀ operation ∈ catalog.operations,
      ((optionsOf operation).map PlacedOption.trail).Nodup ∧
      ∀ trail node, Places (optionsOf operation) trail node ↔
        operation.2.root.Stands trail node ∧ Trail.EndsInMember trail := by
  obtain ⟨entries, -, built⟩ := document.exists_schemas loaded
  have reachable := OperationSource.reachable_of_schemas built
  refine ⟨fun result => ?_, fun operation inside =>
    ⟨nodup_optionsOf (reachable operation inside), fun trail node => places_optionsOf_iff⟩⟩
  rw [LintResult.warnings, LintResult.warnings, List.filter_append, filter_findings sources reachable]

/-- A document of operations alone. -/
def imagesDocument (operations : List (Value × Value)) : CatalogDocument :=
  ⟨.map [(.text "name", .text "images"), (.text "operations", .map operations)], none, none⟩

/-- In lists of lists a key in lower case, and a rank with a digit at the start of its new name. -/
def carelessSearch : CatalogDocument :=
  let ranked : Value × Value := (.text "Rank", .map [(.text "rename", .text "2nd")])
  let tag : Value := .map [(.text "structure", .map [(.text "key", .text "string"), ranked])]
  let nested : Value := .map [(.text "list", .map [(.text "membered_list", tag)])]
  let options : Value := .list [.text "OwnerName", .map [(.text "Tag", .list [nested])]]
  imagesDocument [(.text "Search", options), (.text "find", .list [])]

theorem carelessSearch_warnings : ∃ catalog, carelessSearch.load = .ok catalog ∧
    (LintResult.mk imagesFile (findings catalog none)).warnings.length = 3 ∧
    (catalog.operations.flatMap fun operation =>
      (namesOf operation).filter fun name => ¬ name.Fits).length = 3 := by
  have counted : (carelessSearch.load.map fun catalog =>
      (LintResult.mk imagesFile (findings catalog none)).warnings.length).toOption = some 3 := by
    decide +kernel
  obtain ⟨catalog, loaded, three⟩ := map_eq_ok_iff.mp (toOption_eq_some_iff.mp counted)
  have adds := (warnings_of_findings loaded none).1 ⟨imagesFile, []⟩
  have nothing : (LintResult.mk imagesFile []).warnings = [] := rfl
  rw [nothing, List.nil_append, List.nil_append] at adds
  refine ⟨catalog, loaded, three, ?_⟩
  rw [adds] at three
  simpa only [List.length_flatMap, List.length_map] using three

/-- An operation whose name ends in a line feed. -/
def endedSearch : CatalogDocument := imagesDocument [(.text "Search\n", .list [])]

theorem endedSearch_unwarned : ∃ catalog, endedSearch.load = .ok catalog ∧
    (catalog.operations.map fun operation => operation.1.text?) = [some (Text.ofString "Search\n")] ∧
    ¬ Naming.IsPascal "Search\n" ∧ findings catalog none = [] := by
  have found : (endedSearch.load.map fun catalog =>
      (catalog.operations.map fun operation => operation.1.text?, findings catalog none)).toOption =
        some ([some (Text.ofString "Search\n")], []) := by
    decide +kernel
  obtain ⟨catalog, loaded, read⟩ := map_eq_ok_iff.mp (toOption_eq_some_iff.mp found)
  obtain ⟨names, none⟩ := Prod.mk.inj read
  exact ⟨catalog, loaded, names, by decide, none⟩

end NamingLint

end QueryOptions
