import Mathlib.Algebra.GroupWithZero.Nat
import Mathlib.Data.Finset.Card
import Mathlib.Data.Finset.Dedup
import QueryOptions.Proofs.Loading
import QueryOptions.Proofs.NamingLint
import QueryOptions.Proofs.Repetition

namespace QueryOptions

/-! How often the naming linter finds a binding name shared. It goes through every level of an
operation once, and at each level finds as many errors as nodes have a name that an earlier one has.
Where it finds none, every node is the one that its binding name leads to. -/

/-! Levels. -/

namespace Node

mutual

/-- The levels of a node, each as often as the node has it. -/
def levels : Node → List (List Node)
  | .scalar _ _ => []
  | .list _ member _ => member.levels
  | .structure _ members => members :: levelsOfAll members

def levelsOfAll : List Node → List (List Node)
  | [] => []
  | node :: rest => node.levels ++ levelsOfAll rest

end

theorem levelsOfAll_eq_flatMap (nodes : List Node) : levelsOfAll nodes = nodes.flatMap levels := by
  induction nodes with
  | nil => rfl
  | cons node rest ih => rw [levelsOfAll, ih, List.flatMap_cons]

theorem levels_structure (heading : Heading) (members : List Node) :
    (Node.structure heading members).levels = members :: members.flatMap levels := by
  rw [levels, levelsOfAll_eq_flatMap]

theorem mem_levels_iff {node : Node} {level : List Node} :
    level ∈ node.levels ↔ node.HasLevel level := by
  induction node with
  | scalar heading leaf =>
      constructor
      · exact fun inside => absurd inside List.not_mem_nil
      · exact nofun
  | list heading member join ih =>
      rw [levels, ih]
      constructor
      · exact .element
      · intro found
        cases found with
        | element deeper => exact deeper
  | members heading nodes ih =>
      rw [levels_structure, List.mem_cons, List.mem_flatMap]
      constructor
      · rintro (rfl | ⟨member, inside, deeper⟩)
        · exact .here
        · exact .member inside ((ih member inside).mp deeper)
      · intro found
        cases found with
        | here => exact .inl rfl
        | member inside deeper => exact .inr ⟨_, inside, (ih _ inside).mpr deeper⟩

end Node

/-- The number of different binding names at a level. -/
def bindingCount (level : List Node) : Nat := (level.map Node.binding).toFinset.card

/-- How many more nodes than binding names a level has. -/
def surplus (level : List Node) : Nat := level.length - bindingCount level

section Level

variable {level : List Node} {node : Node}

theorem bindingCount_le_length (level : List Node) : bindingCount level ≤ level.length :=
  (List.toFinset_card_le _).trans_eq (List.length_map _)

theorem bindingCount_concat : bindingCount (level ++ [node]) =
    bindingCount level + if node.binding ∈ level.map Node.binding then 0 else 1 := by
  have inserted : ((level ++ [node]).map Node.binding).toFinset =
      insert node.binding (level.map Node.binding).toFinset := by
    ext binding
    simp
  rw [bindingCount, inserted, bindingCount]
  split
  · rename_i known
    rw [Finset.insert_eq_of_mem (List.mem_toFinset.mpr known), Nat.add_zero]
  · rename_i fresh
    exact Finset.card_insert_of_notMem fun known => fresh (List.mem_toFinset.mp known)

/-- Among nodes with distinct wire names a node that its binding name leads to is the only one of
that name. -/
theorem distinctBindings_iff_found (wires : DistinctWires level) : DistinctBindings level ↔
    ∀ node ∈ level, findBinding? node.binding level = some node := by
  constructor
  · exact fun distinct node inside => findBinding?_of_nodup distinct inside
  · intro found
    refine List.Nodup.map_on (fun left inLeft right inRight same => ?_) (List.Nodup.of_map _ wires)
    have first := found left inLeft
    rw [same, found right inRight] at first
    exact (Option.some.inj first).symm

end Level

/-- The surplus of all levels of a node together. -/
def totalSurplus (node : Node) : Nat := (node.levels.map surplus).sum

theorem totalSurplus_structure (heading : Heading) (members : List Node) :
    totalSurplus (.structure heading members) =
      surplus members + (members.map totalSurplus).sum := by
  rw [totalSurplus, Node.levels_structure, List.map_cons, List.sum_cons, List.map_flatMap,
    List.flatMap_def, List.sum_flatten, List.map_map]
  rfl

/-! Errors. -/

namespace NamingLint

variable {owner : Text} {location : SourceLocation} {earlier nodes : List Node} {node : Node}

def errorCount (findings : List Finding) : Nat := findings.countP Finding.isError

theorem length_errors (result : LintResult) : result.errors.length = errorCount result.findings :=
  List.countP_eq_length_filter.symm

@[simp] theorem errorCount_append (first second : List Finding) :
    errorCount (first ++ second) = errorCount first + errorCount second :=
  List.countP_append

theorem errorCount_of_faultless {findings : List Finding} (faultless : Faultless findings) :
    errorCount findings = 0 := by
  refine List.countP_eq_zero.mpr fun finding inside => ?_
  simp [faultless finding inside]

theorem errorCount_sharedFindings : errorCount (sharedFindings owner location earlier node) =
    if node.binding ∈ earlier.map Node.binding then 1 else 0 := by
  rw [sharedFindings]
  cases found : findBinding? node.binding earlier with
  | none =>
      have fresh : node.binding ∉ earlier.map Node.binding := by
        rintro inside
        obtain ⟨other, known, same⟩ := List.mem_map.mp inside
        exact findBinding?_eq_none_iff.mp found other known same
      rw [if_neg fresh]
      rfl
  | some other =>
      have known : node.binding ∈ earlier.map Node.binding :=
        List.mem_map.mpr ⟨other, mem_of_findBinding? found, binding_of_findBinding? found⟩
      rw [if_pos known]
      rfl

/-- Nodes are either errors or add a binding name to those of the nodes before. -/
theorem errorCount_levelFindings_add (owner : Text) (location : SourceLocation)
    (earlier nodes : List Node) :
    errorCount (levelFindings owner location earlier nodes) + bindingCount (earlier ++ nodes) =
      nodes.length + bindingCount earlier + (nodes.map fun node =>
        errorCount (structureFindings owner location node.wire node)).sum := by
  induction nodes generalizing earlier with
  | nil => simp [levelFindings, errorCount]
  | cons node rest ih =>
      have later := ih (earlier ++ [node])
      rw [List.append_assoc, List.singleton_append, bindingCount_concat] at later
      rw [levelFindings, errorCount_append, errorCount_append, errorCount_append,
        errorCount_of_faultless faultless_nameFindings, errorCount_sharedFindings, List.map_cons,
        List.sum_cons, List.length_cons]
      split at later <;> simp only [*, if_true, if_false] <;> omega

theorem errorCount_levelFindings : errorCount (levelFindings owner location [] nodes) =
    surplus nodes +
      (nodes.map fun node => errorCount (structureFindings owner location node.wire node)).sum := by
  have counted := errorCount_levelFindings_add owner location [] nodes
  have bounded := bindingCount_le_length nodes
  have none : bindingCount [] = 0 := rfl
  rw [List.nil_append] at counted
  rw [surplus]
  omega

theorem errorCount_structureFindings (node : Node) (owner : Text) (wire : WireName) :
    errorCount (structureFindings owner location wire node) = totalSurplus node := by
  induction node generalizing owner wire with
  | scalar heading leaf => rfl
  | list heading member join ih => exact ih owner wire
  | members heading nodes ih =>
      rw [structureFindings, errorCount_levelFindings, totalSurplus_structure]
      refine congrArg (surplus nodes + List.sum ·) (List.map_congr_left fun node inside => ?_)
      exact ih node inside _ node.wire

theorem errorCount_operationFindings {operation : Value} {schema : Schema} :
    errorCount (operationFindings location operation schema) = totalSurplus schema.root := by
  rw [operationFindings, errorCount_append, errorCount_of_faultless faultless_warning, Nat.zero_add,
    errorCount_levelFindings, Schema.root, totalSurplus_structure]
  simp only [errorCount_structureFindings]

theorem errorCount_findings {catalog : Catalog} {sources : Option SourceMap} :
    errorCount (findings catalog sources) =
      (catalog.operations.map fun operation => totalSurplus operation.2.root).sum := by
  rw [findings, errorCount, List.countP_flatMap]
  refine congrArg List.sum (List.map_congr_left fun operation _ => ?_)
  exact errorCount_operationFindings

end NamingLint

/-! Schemas of catalogs. -/

namespace OperationSource

variable {source : OperationSource} {chain : List Value} {name : Value}
  {built after : BuiltOperations}

def AllReachable (built : BuiltOperations) : Prop := ∀ made ∈ built, made.2.schema.Reachable

theorem AllReachable.extend (reachable : AllReachable built) {onto : Schema}
    (base : onto.Reachable) (run : source.extend name onto built = .ok after) :
    AllReachable after := by
  unfold OperationSource.extend at run
  split at run
  · rename_i schema customized
    cases run
    exact List.forall_mem_append.mpr
      ⟨reachable, List.forall_mem_singleton.mpr (.customize base trivial customized)⟩
  · contradiction

theorem AllReachable.build (reachable : AllReachable built)
    (run : source.build chain name built = .ok after) : AllReachable after := by
  fun_induction OperationSource.build source chain name built generalizing after with
  | case1 =>
      cases run
      exact reachable
  | case2 => contradiction
  | case3 => exact reachable.extend .empty run
  | case4 => contradiction
  | case5 chain name _ _ base _ _ middle runBase found hit ih =>
      have before := ih runBase
      obtain ⟨known, inside, -⟩ := Entries.exists_mem_of_find? hit
      exact before.extend (before _ inside) run
  | case6 chain name _ _ base _ _ middle runBase _ ih =>
      exact (ih runBase).extend .empty run
  | case7 => contradiction

theorem reachable_of_schemas {schemas : List (Value × Schema)}
    (run : source.schemas = .ok schemas) : ∀ operation ∈ schemas, operation.2.Reachable := by
  unfold OperationSource.schemas at run
  split at run
  · rename_i built ran
    cases run
    have initially : AllReachable [] := nofun
    have reachable := foldlM_preserves AllReachable
      (fun _ _ _ _ reachable stepped => reachable.build stepped) initially ran
    intro operation inside
    obtain ⟨declared, -, placed⟩ := List.mem_filterMap.mp inside
    obtain ⟨made, hit, rfl⟩ := Option.map_eq_some_iff.mp placed
    obtain ⟨known, member, -⟩ := Entries.exists_mem_of_find? hit
    exact reachable _ member
  · contradiction

end OperationSource

namespace CatalogDocument

theorem exists_assembled {document : CatalogDocument} {catalog : Catalog}
    (loaded : document.load = .ok catalog) :
    ∃ entries operations, document.value = .map entries ∧
      (document.operationSource entries).schemas = .ok operations ∧
      document.assemble entries operations = catalog := by
  unfold load at loaded
  split at loaded
  · rename_i entries mapping
    dsimp only at loaded
    split at loaded
    · cases loaded
    · split at loaded
      · cases loaded
      · obtain ⟨operations, built, made⟩ := ok_of_bind loaded
        cases made
        exact ⟨entries, operations, mapping, built, rfl⟩
      · cases loaded
  · cases loaded

theorem exists_schemas {document : CatalogDocument} {catalog : Catalog}
    (loaded : document.load = .ok catalog) :
    ∃ entries, document.value = .map entries ∧
      (document.operationSource entries).schemas = .ok catalog.operations := by
  obtain ⟨entries, operations, mapping, built, rfl⟩ := exists_assembled loaded
  exact ⟨entries, mapping, built⟩

end CatalogDocument

namespace NamingLint

/-- Linting the names of a loaded catalog adds as many errors as its levels have more nodes than
binding names, and so none just if at every level the binding name of every node leads to it. -/
theorem errors_of_findings {document : CatalogDocument} {catalog : Catalog}
    (loaded : document.load = .ok catalog) (sources : Option SourceMap) :
    (∀ result : LintResult,
      (LintResult.mk result.file (result.findings ++ findings catalog sources)).errors.length =
        result.errors.length +
          (catalog.operations.map fun operation => totalSurplus operation.2.root).sum) ∧
    (Faultless (findings catalog sources) ↔ ∀ operation ∈ catalog.operations,
      ∀ level ∈ operation.2.root.levels, ∀ node ∈ level,
        findBinding? node.binding level = some node) := by
  constructor
  · intro result
    rw [length_errors, length_errors, errorCount_append, errorCount_findings]
  · rw [findings, Faultless, List.forall_mem_flatMap]
    refine forall₂_congr fun operation inside => ?_
    obtain ⟨entries, -, built⟩ := document.exists_schemas loaded
    have reachable : operation.2.Reachable := OperationSource.reachable_of_schemas built _ inside
    have wires : operation.2.root.Everywhere DistinctWires :=
      Node.everywhere_structure.mpr reachable.distinctWires
    simp only [Node.mem_levels_iff]
    refine Schema.faultless_iff_distinctBindings.trans (forall₂_congr fun level stands => ?_)
    exact distinctBindings_iff_found (wires level stands)

def imagesFile : Path := .ofText "images.catalog.yaml"

/-- An owner that is declared under two names, and tags in lists of lists with three names for
their keys. -/
def crowdedSearch : CatalogDocument :=
  let renamed (name target : String) : Value × Value :=
    (.text name, .map [(.text "rename", .text target)])
  let tag : Value := .map [(.text "structure", .map
    [(.text "Key", .text "string"), renamed "Name" "key", renamed "Id" "Key"])]
  let nested : Value := .map [(.text "list", .map [(.text "membered_list", tag)])]
  let options : Value := .list [.text "Owner",
    .map [(.text "OwnerName", .list [.map [(.text "rename", .text "owner")]])],
    .map [(.text "Tag", .list [nested])]]
  let entries : List (Value × Value) := [(.text "name", .text "images"),
    (.text "operations", .map [(.text "Search", options)])]
  ⟨.map entries, none, none⟩

theorem crowdedSearch_errors : ∃ catalog, crowdedSearch.load = .ok catalog ∧
    (LintResult.mk imagesFile (findings catalog none)).errors.length = 3 ∧
    (catalog.operations.map fun operation => totalSurplus operation.2.root).sum = 3 ∧
    ¬ ∀ operation ∈ catalog.operations, ∀ level ∈ operation.2.root.levels, ∀ node ∈ level,
      findBinding? node.binding level = some node := by
  have counted : (crowdedSearch.load.map fun catalog =>
      errorCount (findings catalog none)).toOption = some 3 := by
    decide +kernel
  cases loaded : crowdedSearch.load with
  | error error =>
      rw [loaded] at counted
      cases counted
  | ok catalog =>
      rw [loaded] at counted
      have three : errorCount (findings catalog none) = 3 := Option.some.inj counted
      obtain ⟨adds, none_iff⟩ := errors_of_findings loaded none
      have total := adds ⟨imagesFile, []⟩
      have length : (LintResult.mk imagesFile (findings catalog none)).errors.length = 3 :=
        (length_errors _).trans three
      refine ⟨catalog, rfl, length, ?_, fun found => ?_⟩
      · rw [List.nil_append, length] at total
        simpa [LintResult.errors] using total.symm
      · rw [errorCount_of_faultless (none_iff.mpr found)] at three
        cases three

end NamingLint

end QueryOptions
