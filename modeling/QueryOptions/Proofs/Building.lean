import Mathlib.Data.List.Perm.Basic
import QueryOptions.Proofs.Lineage

namespace QueryOptions

/-! Building the operations of a document. What one call of the builder adds is what the document
yields, and a call only fails where the document cannot be built; hence the operations are built
exactly when all of them have accepted lineages, wherever they stand in the document. -/

namespace OperationSource

variable {source other : OperationSource} {operation base derived : Value × Value} {name : Value}

/-- All that has been built is what the document yields. -/
def Sound (source : OperationSource) (built : BuiltOperations) : Prop :=
  ∀ made ∈ built, ∃ operation, source.Declares made.1 operation ∧
    source.Yields operation made.2.schema

/-- To build an operation adds it, unless it was there, and loses nothing. -/
structure Builds (source : OperationSource) (before after : BuiltOperations) (name : Value) :
    Prop where
  sound : source.Sound after
  kept : ∀ known, Entries.hasKey known before = true → Entries.hasKey known after = true
  added : Entries.hasKey name after = true

variable {built after : BuiltOperations} {chain : List Value} {onto : Schema}

theorem Sound.add {made : BuiltOperation} (sound : source.Sound built)
    (declares : source.Declares name operation) (yields : source.Yields operation made.schema) :
    source.Builds built (built ++ [(name, made)]) name where
  sound entry inside := by
    rcases List.mem_append.mp inside with before | last
    · exact sound entry before
    · cases List.mem_singleton.mp last
      exact ⟨operation, declares, yields⟩
  kept known given := by
    obtain ⟨entry, inside, same⟩ := Entries.hasKey_iff.mp given
    exact Entries.hasKey_iff.mpr ⟨entry, List.mem_append_left _ inside, same⟩
  added := Entries.hasKey_iff.mpr
    ⟨(name, made), List.mem_append_right _ List.mem_cons_self, BEq.rfl⟩

theorem Builds.after_base {baseName : Value} {middle : BuiltOperations}
    (first : source.Builds built middle baseName) (second : source.Builds middle after name) :
    source.Builds built after name :=
  ⟨second.sound, fun known given => second.kept known (first.kept known given), second.added⟩

theorem extend_eq_ok_iff : source.extend name onto built = .ok after ↔
    ∃ schema, onto.customize (source.entry name).declarations = .ok schema ∧
      after = built ++ [(name, ⟨schema, onto.size⟩)] := by
  unfold extend
  cases onto.customize (source.entry name).declarations <;> simp [eq_comm]

section Building

variable (distinct : Entries.Distinct source.operations)

include distinct

theorem Sound.yields_of_find? {found : BuiltOperation} (sound : source.Sound built)
    (declares : source.Declares name operation)
    (hit : Entries.find? name built = some found) : source.Yields operation found.schema := by
  obtain ⟨known, inside, same⟩ := Entries.exists_mem_of_find? hit
  obtain ⟨also, declaresAlso, yields⟩ := sound _ inside
  have equal : also = operation :=
    Declares.unique distinct ⟨declaresAlso.inside, BEq.trans declaresAlso.named same⟩ declares
  exact equal ▸ yields

variable (shaped : ∀ operation ∈ source.operations, Shape.isOperation operation.2 = true)

include shaped

theorem Sound.extend_root (sound : source.Sound built) (declares : source.Declares name operation)
    (rooted : (source.entry name).base = none)
    (run : source.extend name .empty built = .ok after) : source.Builds built after name := by
  obtain ⟨own, declared⟩ :=
    OperationEntry.declarations_of_isOperation (shaped operation declares.inside)
  obtain ⟨schema, made, rfl⟩ := extend_eq_ok_iff.mp run
  rw [declares.entry_eq distinct] at rooted made
  rw [declared] at made
  exact sound.add declares ⟨own, .root declares.inside rooted declared, made⟩

theorem Sound.extend_base {baseName : Value} {found : BuiltOperation} (sound : source.Sound built)
    (declares : source.Declares name operation) (given : (source.entry name).base = some baseName)
    (declaresBase : source.Declares baseName base)
    (hit : Entries.find? baseName built = some found)
    (run : source.extend name found.schema built = .ok after) :
    source.Builds built after name := by
  obtain ⟨own, declared⟩ :=
    OperationEntry.declarations_of_isOperation (shaped operation declares.inside)
  obtain ⟨schema, made, rfl⟩ := extend_eq_ok_iff.mp run
  rw [declares.entry_eq distinct] at given made
  rw [declared] at made
  obtain ⟨inherited, line, builtBase⟩ := sound.yields_of_find? distinct declaresBase hit
  have based : source.BaseOf base operation := ⟨declares.inside, baseName, given, declaresBase⟩
  exact sound.add declares ⟨inherited ++ own, .extension based line declared,
    Schema.customize_append_iff.mpr ⟨found.schema, builtBase, made⟩⟩

/-- What one call of the builder adds is what the document yields. -/
theorem Sound.build (sound : source.Sound built) (declares : source.Declares name operation)
    (run : source.build chain name built = .ok after) : source.Builds built after name := by
  fun_induction OperationSource.build source chain name built generalizing operation after with
  | case1 chain name known =>
      cases run
      exact ⟨sound, fun _ => id, known⟩
  | case2 => contradiction
  | case3 chain name _ _ rooted =>
      exact sound.extend_root distinct shaped declares rooted run
  | case4 => contradiction
  | case5 chain name _ _ baseName given known middle runBase found hit ih =>
      obtain ⟨base, declaresBase⟩ := hasKey_iff_declares.mp known
      have first := ih declaresBase runBase
      exact first.after_base
        (first.sound.extend_base distinct shaped declares given declaresBase hit run)
  | case6 chain name _ _ baseName given known middle runBase missing ih =>
      obtain ⟨base, declaresBase⟩ := hasKey_iff_declares.mp known
      have added := (ih declaresBase runBase).added
      simp [Entries.hasKey, missing] at added
  | case7 => contradiction

end Building

/-- The operations that wait for this one reach it by following bases. -/
def Awaited (source : OperationSource) (chain : List Value) (operation : Value × Value) : Prop :=
  ∀ name ∈ chain, ∃ waiting, source.Declares name waiting ∧
    Relation.TransGen source.BaseOf operation waiting

theorem Awaited.step (awaited : source.Awaited chain operation)
    (declares : source.Declares name operation) (based : source.BaseOf base operation) :
    source.Awaited (chain ++ [name]) base := by
  intro other inside
  rcases List.mem_append.mp inside with before | last
  · obtain ⟨waiting, declared, reached⟩ := awaited other before
    exact ⟨waiting, declared, .head based reached⟩
  · cases List.mem_singleton.mp last
    exact ⟨operation, declares, .single based⟩

section Buildable

variable (distinct : Entries.Distinct source.operations) (buildable : source.Buildable)

include distinct buildable

theorem Buildable.extend (declares : source.Declares name operation) (onto : Schema)
    (built : BuiltOperations) : ∃ after, source.extend name onto built = .ok after := by
  obtain ⟨schema, made⟩ := Schema.customize_accepts_iff.mpr
    (Schema.customize_accepts_iff.mp (buildable.accepted operation declares.inside))
  rw [← declares.entry_eq distinct] at made
  exact ⟨_, extend_eq_ok_iff.mpr ⟨schema, made, rfl⟩⟩

theorem Buildable.build (declares : source.Declares name operation)
    (awaited : source.Awaited chain operation) :
    ∃ after, source.build chain name built = .ok after := by
  fun_induction OperationSource.build source chain name built generalizing operation with
  | case1 => exact ⟨_, rfl⟩
  | case2 chain name _ waits =>
      obtain ⟨other, inside, same⟩ := List.any_eq_true.mp waits
      obtain ⟨waiting, declared, reached⟩ := awaited other inside
      have equal : waiting = operation :=
        Declares.unique distinct ⟨declared.inside, BEq.trans declared.named same⟩ declares
      exact absurd (equal ▸ reached) (buildable.acyclic operation declares.inside)
  | case3 chain name => exact buildable.extend distinct declares .empty built
  | case4 chain name _ _ baseName given known failure runBase ih =>
      obtain ⟨base, declaresBase⟩ := hasKey_iff_declares.mp known
      rw [declares.entry_eq distinct] at given
      have based : source.BaseOf base operation := ⟨declares.inside, baseName, given, declaresBase⟩
      obtain ⟨after, run⟩ := ih declaresBase (awaited.step declares based)
      rw [runBase] at run
      contradiction
  | case5 chain name _ _ baseName given known middle runBase found hit =>
      exact buildable.extend distinct declares found.schema middle
  | case6 chain name _ _ baseName given known middle runBase missing =>
      exact buildable.extend distinct declares .empty middle
  | case7 chain name _ _ baseName given unknown =>
      rw [declares.entry_eq distinct] at given
      exact absurd (buildable.declared operation declares.inside baseName given) unknown

end Buildable

/-! All operations, one after the other. -/

/-- Builds some of the operations. -/
def buildEach (source : OperationSource) (operations : List (Value × Value))
    (built : BuiltOperations) : Except BuildFailure BuiltOperations :=
  operations.foldlM (fun built operation => source.build [] operation.1 built) built

theorem buildAll_eq (source : OperationSource) :
    source.buildAll = source.buildEach source.operations [] := rfl

theorem buildEach_cons (rest : List (Value × Value)) : source.buildEach (operation :: rest) built =
    source.build [] operation.1 built >>= source.buildEach rest := by
  rw [buildEach, List.foldlM_cons]
  rfl

section Run

variable {operations : List (Value × Value)} (distinct : Entries.Distinct source.operations)
  (within : operations ⊆ source.operations)

include distinct within

theorem Sound.buildEach
    (shaped : ∀ operation ∈ source.operations, Shape.isOperation operation.2 = true)
    (sound : source.Sound built) (run : source.buildEach operations built = .ok after) :
    source.Sound after ∧
      (∀ known, Entries.hasKey known built = true → Entries.hasKey known after = true) ∧
      ∀ operation ∈ operations, Entries.hasKey operation.1 after = true := by
  induction operations generalizing built with
  | nil =>
      cases run
      exact ⟨sound, fun _ => id, nofun⟩
  | cons first rest ih =>
      obtain ⟨inside, restWithin⟩ := List.cons_subset.mp within
      rw [buildEach_cons] at run
      obtain ⟨middle, runFirst, runRest⟩ := ok_of_bind run
      have step := sound.build distinct shaped (declares_of_mem inside) runFirst
      obtain ⟨soundAfter, kept, added⟩ := ih restWithin step.sound runRest
      refine ⟨soundAfter, fun known given => kept known (step.kept known given), ?_⟩
      intro operation member
      rcases List.mem_cons.mp member with rfl | inRest
      · exact kept _ step.added
      · exact added operation inRest

theorem Buildable.buildEach (buildable : source.Buildable) (built : BuiltOperations) :
    ∃ after, source.buildEach operations built = .ok after := by
  induction operations generalizing built with
  | nil => exact ⟨built, rfl⟩
  | cons first rest ih =>
      obtain ⟨inside, restWithin⟩ := List.cons_subset.mp within
      have alone : source.Awaited [] first := nofun
      obtain ⟨middle, runFirst⟩ : ∃ middle, source.build [] first.1 built = .ok middle :=
        buildable.build distinct (declares_of_mem inside) alone
      obtain ⟨after, runRest⟩ := ih restWithin middle
      refine ⟨after, ?_⟩
      rw [buildEach_cons, runFirst]
      exact runRest

end Run

section Schemas

variable (distinct : Entries.Distinct source.operations)

include distinct

theorem Sound.inDeclaredOrder {operations : List (Value × Value)} (sound : source.Sound built)
    (within : operations ⊆ source.operations)
    (all : ∀ operation ∈ operations, Entries.hasKey operation.1 built = true) :
    List.Forall₂ source.Makes operations (operations.filterMap fun operation =>
      (Entries.find? operation.1 built).map fun found => (operation.1, found.schema)) := by
  induction operations with
  | nil => exact .nil
  | cons first rest ih =>
      obtain ⟨inside, restWithin⟩ := List.cons_subset.mp within
      obtain ⟨known, others⟩ := List.forall_mem_cons.mp all
      obtain ⟨found, hit⟩ := Option.isSome_iff_exists.mp known
      simp only [List.filterMap_cons, hit, Option.map_some]
      exact .cons ⟨rfl, sound.yields_of_find? distinct (declares_of_mem inside) hit⟩
        (ih restWithin others)

theorem Buildable.schemas (buildable : source.Buildable) :
    ∃ schemas, source.schemas = .ok schemas := by
  obtain ⟨built, run⟩ := buildable.buildEach distinct (List.Subset.refl source.operations) []
  exact ⟨source.inDeclaredOrder built, by rw [OperationSource.schemas, buildAll_eq, run]⟩

variable (shaped : ∀ operation ∈ source.operations, Shape.isOperation operation.2 = true)

include shaped

theorem makes_of_schemas {schemas : List (Value × Schema)} (run : source.schemas = .ok schemas) :
    List.Forall₂ source.Makes source.operations schemas := by
  unfold OperationSource.schemas at run
  split at run
  · rename_i built all
    cases run
    have sound : source.Sound [] := nofun
    obtain ⟨soundAfter, -, added⟩ :=
      sound.buildEach distinct (List.Subset.refl source.operations) shaped all
    exact soundAfter.inDeclaredOrder distinct (List.Subset.refl source.operations) added
  · contradiction

theorem schemas_ok_iff_yields : (∃ schemas, source.schemas = .ok schemas) ↔
    ∀ operation ∈ source.operations, ∃ schema, source.Yields operation schema := by
  constructor
  · rintro ⟨schemas, run⟩ operation inside
    obtain ⟨made, -, makes⟩ := exists_of_forall₂ (makes_of_schemas distinct shaped run) inside
    exact ⟨made.2, makes.2⟩
  · exact fun yields => (buildable_of_yields distinct yields).schemas distinct

/-- The operations of a document are built exactly when their bases are declared, lead nowhere in a
circle and every operation declares what is accepted on its own. The schemas come in the order of
declaration, each is what the lineage of its operation gives, and the order changes neither. -/
theorem schemas_follow_lineages :
    ((∃ schemas, source.schemas = .ok schemas) ↔ source.Buildable) ∧
    (∀ schemas, source.schemas = .ok schemas →
      List.Forall₂ source.Makes source.operations schemas) ∧
    ∀ other : OperationSource, other.operations.Perm source.operations →
      ((∃ schemas, other.schemas = .ok schemas) ↔ ∃ schemas, source.schemas = .ok schemas) ∧
      ∀ schemas otherSchemas, source.schemas = .ok schemas → other.schemas = .ok otherSchemas →
        otherSchemas.Perm schemas := by
  refine ⟨⟨fun built => buildable_of_yields distinct ?_, fun able => able.schemas distinct⟩,
    fun schemas run => makes_of_schemas distinct shaped run, fun other reordered => ?_⟩
  · exact (schemas_ok_iff_yields distinct shaped).mp built
  have otherDistinct : Entries.Distinct other.operations :=
    (reordered.pairwise_iff fun apart => by rw [BEq.comm, apart]).mpr distinct
  have otherShaped : ∀ operation ∈ other.operations, Shape.isOperation operation.2 = true :=
    fun operation inside => shaped operation (reordered.mem_iff.mp inside)
  have yields_iff : ∀ operation schema, other.Yields operation schema ↔
      source.Yields operation schema :=
    fun _ _ => ⟨Yields.mono reordered.subset, Yields.mono reordered.symm.subset⟩
  refine ⟨?_, fun schemas otherSchemas run otherRun => ?_⟩
  · simp only [schemas_ok_iff_yields otherDistinct otherShaped,
      schemas_ok_iff_yields distinct shaped, reordered.mem_iff, yields_iff]
  · have otherMade : List.Forall₂ source.Makes other.operations otherSchemas :=
      (makes_of_schemas otherDistinct otherShaped otherRun).imp
        fun operation made makes => ⟨makes.1, (yields_iff operation made.2).mp makes.2⟩
    obtain ⟨moved, movedMade, perm⟩ :=
      List.perm_comp_forall₂ reordered (makes_of_schemas distinct shaped run)
    rw [(Makes.rightUnique distinct).forall₂ otherMade movedMade]
    exact perm

end Schemas

/-- An operation that stands before its base. -/
def ownerSearch : OperationSource where
  operations := [
    (.text "SearchMine", .map [(.text "base", .text "Search"),
      (.text "options", .list [.map [(.text "Owner", .list [.text "required"])], .text "Limit"])]),
    (.text "Search", .list [.map [(.text "Owner", .list [.text "integer"])], .text "Name"])]
  sources := none
  file := none

/-- The schemas of both, with the later one first. -/
def ownerSearchSchemas : List (Value × Schema) :=
  let name : Node := .default (.plain "Name")
  [(.text "SearchMine",
      ⟨[.scalar ⟨.plain "Owner", "owner", true⟩ .integer, name, .default (.plain "Limit")]⟩),
    (.text "Search", ⟨[.scalar ⟨.plain "Owner", "owner", false⟩ .integer, name]⟩)]

theorem ownerSearch_schemas : Entries.Distinct ownerSearch.operations ∧
    (∀ operation ∈ ownerSearch.operations, Shape.isOperation operation.2 = true) ∧
    ownerSearch.schemas = .ok ownerSearchSchemas := by
  have distinct : Entries.Distinct ownerSearch.operations := by decide
  have shaped : ∀ operation ∈ ownerSearch.operations, Shape.isOperation operation.2 = true := by
    decide
  have searchInside : ownerSearch.operations[1] ∈ ownerSearch.operations := List.getElem_mem _
  have search : ownerSearch.Lineage ownerSearch.operations[1] _ := .root searchInside rfl rfl
  have based : ownerSearch.BaseOf ownerSearch.operations[1] ownerSearch.operations[0] :=
    ⟨List.getElem_mem _, .text "Search", rfl, searchInside, rfl⟩
  have made : List.Forall₂ ownerSearch.Makes ownerSearch.operations ownerSearchSchemas :=
    .cons ⟨rfl, _, .extension based search rfl, rfl⟩ (.cons ⟨rfl, _, search, rfl⟩ .nil)
  have buildable : ownerSearch.Buildable := by
    refine buildable_of_yields distinct fun operation inside => ?_
    obtain ⟨result, -, makes⟩ := exists_of_forall₂ made inside
    exact ⟨result.2, makes.2⟩
  obtain ⟨succeeds, follows, -⟩ := schemas_follow_lineages distinct shaped
  obtain ⟨schemas, run⟩ := succeeds.mpr buildable
  refine ⟨distinct, shaped, ?_⟩
  rw [run, (Makes.rightUnique distinct).forall₂ (follows schemas run) made]

end OperationSource

end QueryOptions
