import Mathlib.Logic.Relation
import Mathlib.Logic.Relator
import QueryOptions.Catalog.Operations
import QueryOptions.Catalog.Shape
import QueryOptions.Proofs.Acceptance

namespace QueryOptions

/-! Operations that extend others. An operation takes over all declarations of its base; those along
the chain of its bases, one after the other, are its lineage. An operation has no two lineages, and
following the bases of one that has a lineage ends. -/

/-- The options of an operation of the right shape are a list. -/
theorem OperationEntry.declarations_of_isOperation {value : Value}
    (shaped : Shape.isOperation value = true) :
    ∃ own, (ofValue value).declarations = .list own := by
  have listed : ∀ options, Shape.isOptionList options = true → ∃ own, options = .list own := by
    intro options allowed
    unfold Shape.isOptionList at allowed
    split at allowed
    · exact ⟨_, rfl⟩
    · contradiction
  unfold Shape.isOperation at shaped
  split at shaped
  · rename_i entries
    simp only [Bool.and_eq_true] at shaped
    have given : (Entries.find? (.text "options") entries).any Shape.isOptionList = true :=
      shaped.1.1.1
    cases found : Entries.find? (.text "options") entries with
    | none => simp [found] at given
    | some options =>
        rw [found] at given
        obtain ⟨own, rfl⟩ := listed options given
        exact ⟨own, by simp only [ofValue, found]; rfl⟩
  · obtain ⟨own, rfl⟩ := listed _ shaped
    exact ⟨own, by simp [ofValue]⟩

theorem not_transGen_of_acc {α : Type} {related : α → α → Prop} {item : α}
    (ends : Acc related item) : ¬ Relation.TransGen related item item := by
  have endsGen := ends.transGen
  induction endsGen with
  | intro item _ ih => exact fun again => ih item again (ends.inv_of_transGen again) again

namespace OperationSource

/-- The operation that goes by a name. -/
structure Declares (source : OperationSource) (name : Value) (operation : Value × Value) : Prop where
  inside : operation ∈ source.operations
  named : (operation.1 == name) = true

/-- An operation and the one that it names as its base. -/
structure BaseOf (source : OperationSource) (base derived : Value × Value) : Prop where
  inside : derived ∈ source.operations
  given : ∃ name, (OperationEntry.ofValue derived.2).base = some name ∧ source.Declares name base

/-- The declarations along the bases of an operation, from the one without a base down to its own. -/
inductive Lineage (source : OperationSource) : Value × Value → List Value → Prop
  | root {operation : Value × Value} {own : List Value} (inside : operation ∈ source.operations)
      (rooted : (OperationEntry.ofValue operation.2).base = none)
      (declared : (OperationEntry.ofValue operation.2).declarations = .list own) :
      Lineage source operation own
  | extension {base derived : Value × Value} {inherited own : List Value}
      (based : source.BaseOf base derived) (taken : Lineage source base inherited)
      (declared : (OperationEntry.ofValue derived.2).declarations = .list own) :
      Lineage source derived (inherited ++ own)

/-- Every base is declared, no operation reaches itself by following bases, and the options that an
operation declares are accepted on their own. -/
structure Buildable (source : OperationSource) : Prop where
  declared : ∀ operation ∈ source.operations, ∀ name,
    (OperationEntry.ofValue operation.2).base = some name →
      Entries.hasKey name source.operations = true
  acyclic : ∀ operation ∈ source.operations, ¬ Relation.TransGen source.BaseOf operation operation
  accepted : ∀ operation ∈ source.operations, ∃ schema,
    Schema.empty.customize (OperationEntry.ofValue operation.2).declarations = .ok schema

/-- The schema of an operation is the one that its lineage gives. -/
def Yields (source : OperationSource) (operation : Value × Value) (schema : Schema) : Prop :=
  ∃ lineage, source.Lineage operation lineage ∧ Schema.empty.customize (.list lineage) = .ok schema

/-- The name of an operation with the schema that its lineage gives. -/
def Makes (source : OperationSource) (operation : Value × Value) (made : Value × Schema) : Prop :=
  made.1 = operation.1 ∧ source.Yields operation made.2

variable {source other : OperationSource} {operation base derived : Value × Value} {name : Value}
  {lineage : List Value} {schema : Schema}

theorem declares_of_mem (inside : operation ∈ source.operations) :
    source.Declares operation.1 operation := ⟨inside, BEq.rfl⟩

theorem hasKey_iff_declares :
    Entries.hasKey name source.operations = true ↔ ∃ operation, source.Declares name operation := by
  rw [Entries.hasKey_iff]
  exact exists_congr fun operation => ⟨fun ⟨inside, named⟩ => ⟨inside, named⟩,
    fun ⟨inside, named⟩ => ⟨inside, named⟩⟩

theorem BaseOf.ne_none (based : source.BaseOf base derived) :
    (OperationEntry.ofValue derived.2).base ≠ none := by
  obtain ⟨-, name, given, -⟩ := based
  rw [given]
  exact Option.some_ne_none name

theorem BaseOf.declares (based : source.BaseOf base derived)
    (given : (OperationEntry.ofValue derived.2).base = some name) : source.Declares name base := by
  obtain ⟨-, also, givenAlso, declares⟩ := based
  rw [given, Option.some.injEq] at givenAlso
  exact givenAlso ▸ declares

/-! Only what is declared counts, not where. -/

theorem BaseOf.mono (within : source.operations ⊆ other.operations)
    (based : source.BaseOf base derived) : other.BaseOf base derived := by
  obtain ⟨inside, name, given, declared⟩ := based
  exact ⟨within inside, name, given, within declared.inside, declared.named⟩

theorem Lineage.mono (within : source.operations ⊆ other.operations)
    (line : source.Lineage operation lineage) : other.Lineage operation lineage := by
  induction line with
  | root inside rooted declared => exact .root (within inside) rooted declared
  | extension based _ declared ih => exact .extension (based.mono within) ih declared

theorem Yields.mono (within : source.operations ⊆ other.operations)
    (yields : source.Yields operation schema) : other.Yields operation schema :=
  let ⟨lineage, line, built⟩ := yields
  ⟨lineage, line.mono within, built⟩

/-! Names are given once, so a name tells the operation, and an operation its lineage. -/

section Distinct

variable (distinct : Entries.Distinct source.operations)

include distinct

theorem Declares.unique {second : Value × Value} (declares : source.Declares name operation)
    (again : source.Declares name second) : operation = second :=
  distinct.entry_eq declares.inside again.inside (BEq.trans declares.named (BEq.symm again.named))

theorem Declares.entry_eq (declares : source.Declares name operation) :
    source.entry name = .ofValue operation.2 := by
  rw [entry, distinct.find?_of_mem declares.inside declares.named, Option.getD_some]

theorem BaseOf.unique {second : Value × Value} (based : source.BaseOf base derived)
    (again : source.BaseOf second derived) : base = second := by
  obtain ⟨-, name, given, declares⟩ := based
  exact declares.unique distinct (again.declares given)

theorem Lineage.unique {second : List Value} (line : source.Lineage operation lineage)
    (again : source.Lineage operation second) : lineage = second := by
  induction line generalizing second with
  | root inside rooted declared =>
      cases again with
      | root _ _ declaredAgain =>
          rw [declared] at declaredAgain
          cases declaredAgain
          rfl
      | extension based => exact absurd rooted based.ne_none
  | extension based _ declared ih =>
      cases again with
      | root _ rooted _ => exact absurd rooted based.ne_none
      | extension basedAgain taken declaredAgain =>
          rw [declared] at declaredAgain
          cases declaredAgain
          cases based.unique distinct basedAgain
          rw [ih taken]

theorem Yields.unique {second : Schema} (yields : source.Yields operation schema)
    (again : source.Yields operation second) : schema = second := by
  obtain ⟨lineage, line, built⟩ := yields
  obtain ⟨also, lineAgain, builtAgain⟩ := again
  rw [line.unique distinct lineAgain, builtAgain] at built
  exact (Except.ok.inj built).symm

/-- Following bases from an operation with a lineage ends. -/
theorem Lineage.acc (line : source.Lineage operation lineage) : Acc source.BaseOf operation := by
  induction line with
  | root inside rooted declared =>
      exact .intro _ fun base based => absurd rooted based.ne_none
  | extension based _ _ ih =>
      refine .intro _ fun again basedAgain => ?_
      rwa [← based.unique distinct basedAgain]

theorem Makes.rightUnique : Relator.RightUnique source.Makes := fun _ _ _ makes again =>
  Prod.ext (makes.1.trans again.1.symm) (makes.2.unique distinct again.2)

/-- An operation with an accepted lineage has a declared base, is not among its own bases, and
declares what is accepted on its own. -/
theorem buildable_of_yields
    (yields : ∀ operation ∈ source.operations, ∃ schema, source.Yields operation schema) :
    source.Buildable where
  declared operation inside name given := by
    obtain ⟨schema, lineage, line, -⟩ := yields operation inside
    cases line with
    | root _ rooted =>
        rw [rooted] at given
        contradiction
    | extension based => exact hasKey_iff_declares.mpr ⟨_, based.declares given⟩
  acyclic operation inside := by
    obtain ⟨schema, lineage, line, -⟩ := yields operation inside
    exact not_transGen_of_acc (line.acc distinct)
  accepted operation inside := by
    obtain ⟨schema, lineage, line, built⟩ := yields operation inside
    cases line with
    | root _ _ declared => exact ⟨schema, declared ▸ built⟩
    | extension _ _ declared =>
        obtain ⟨middle, -, onMiddle⟩ := Schema.customize_append_iff.mp built
        obtain ⟨alone, accepted⟩ := Schema.customize_accepts_iff.mpr
          (Schema.customize_accepts_iff.mp ⟨schema, onMiddle⟩)
        exact ⟨alone, declared ▸ accepted⟩

end Distinct

end OperationSource

end QueryOptions
