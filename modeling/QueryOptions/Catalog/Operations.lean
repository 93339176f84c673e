import QueryOptions.Catalog.Error
import QueryOptions.Entries
import QueryOptions.Schema.Basic
import QueryOptions.Value.Key

/-!
Building the schemas of a catalog's operations. An operation may name a base, whose schema it
extends; bases are built before the operations on them, each operation once, whatever the order of
declaration.
-/

namespace QueryOptions

theorem Entries.lined_of_find? {entries : List (Value × Value)} {name field : Value}
    (lined : (Value.map entries).Lined) (found : find? name entries = some field) :
    field.Lined := by
  obtain ⟨key, inside, -⟩ := exists_mem_of_find? found
  exact (Value.lined_map.mp lined _ inside).2

theorem Entries.lined_field {entries : List (Value × Value)} (lined : (Value.map entries).Lined)
    (name : Value) : ((find? name entries).getD .null).Lined := by
  cases found : find? name entries with
  | none => exact nofun
  | some field => exact lined_of_find? lined found

/-- An operation as a document declares it. -/
structure OperationEntry where
  declarations : Value
  base : Option Value

namespace OperationEntry

/-- Values that say nothing stand for no declarations. -/
private def orNone : Value → Value
  | .list items => .list items
  | .map [] => .list []
  | .null => .list []
  | value => value

/-- A mapping has options and may have a base; anything else is the options themselves. -/
def ofValue : Value → OperationEntry
  | .map entries =>
      { declarations := orNone ((Entries.find? (.text "options") entries).getD .null)
        base := (Entries.find? (.text "base") entries).bind fun base =>
          match base with
          | .null => none
          | base => some base }
  | value => ⟨value, none⟩

/-- What an operation declares is part of the value that declares it. -/
theorem lined_ofValue {value : Value} (lined : value.Lined) :
    (ofValue value).declarations.Lined ∧
      ∀ base, (ofValue value).base = some base → base.Lined := by
  have filled {field : Value} (lined : field.Lined) : (orNone field).Lined := by
    unfold orNone
    split
    · exact lined
    · exact nofun
    · exact nofun
    · exact lined
  cases value with
  | map entries =>
      refine ⟨filled (Entries.lined_field lined _), fun base based => ?_⟩
      obtain ⟨field, found, kept⟩ := Option.bind_eq_some_iff.mp based
      split at kept
      · contradiction
      · cases kept
        exact Entries.lined_of_find? lined found
  | _ => exact ⟨lined, nofun⟩

end OperationEntry

/-- An operation that has been built, with the number of options that its base had. -/
structure BuiltOperation where
  schema : Schema
  baseSize : Nat

/-- The operations built so far, in the order in which they were built. -/
abbrev BuiltOperations := List (Value × BuiltOperation)

/-- Why building ended, and what had been built by then. -/
structure BuildFailure where
  error : LoadError
  built : BuiltOperations

/-- The document that operations are built from. -/
structure OperationSource where
  operations : List (Value × Value)
  sources : Option SourceMap
  file : Option Path

namespace OperationSource

def pointer (operation : Value) : Text := Pointer.append "/operations" operation.shown

def locate (source : OperationSource) (pointer : Text) : SourceLocation :=
  .locate source.sources (some pointer) source.file

/-- How an operation is declared. -/
def entry (source : OperationSource) (operation : Value) : OperationEntry :=
  .ofValue ((Entries.find? operation source.operations).getD .null)

/-- Builds an operation on the schema of its base. -/
def extend (source : OperationSource) (operation : Value) (base : Schema)
    (built : BuiltOperations) : Except BuildFailure BuiltOperations :=
  match base.customize (source.entry operation).declarations with
  | .ok schema => .ok (built ++ [(operation, ⟨schema, base.size⟩)])
  | .error error =>
      .error ⟨.declaration operation error (source.locate (pointer operation)), built⟩

/-- The declared operations that do not wait for others. -/
def idle (source : OperationSource) (chain : List Value) : List (Value × Value) :=
  source.operations.filter fun entry => !chain.any (· == entry.1)

theorem idle_append (source : OperationSource) (chain : List Value) (operation : Value) :
    source.idle (chain ++ [operation]) =
      (source.idle chain).filter fun entry => !(operation == entry.1) := by
  simp only [idle, List.any_append, List.any_cons, List.any_nil, Bool.or_false, List.filter_filter]
  refine congrArg (List.filter · _) (funext fun entry => ?_)
  cases chain.any (· == entry.1) <;> simp

theorem idle_lt {source : OperationSource} {chain : List Value} {operation base : Value}
    (idle : ¬ chain.any (· == operation) = true) (based : (source.entry operation).base = some base) :
    (source.idle (chain ++ [operation])).length < (source.idle chain).length := by
  cases found : Entries.find? operation source.operations with
  | none => simp [entry, found, OperationEntry.ofValue] at based
  | some declared =>
      obtain ⟨known, inside, same⟩ := Entries.exists_mem_of_find? found
      rw [idle_append]
      refine List.length_filter_lt_length_iff_exists.mpr ⟨(known, declared), ?_, ?_⟩
      · refine List.mem_filter.mpr ⟨inside, ?_⟩
        simp only [Bool.not_eq_true', List.any_eq_false]
        intro waiting member met
        exact idle (List.any_eq_true.mpr ⟨waiting, member, BEq.trans met same⟩)
      · simp [BEq.symm same]

/-- Builds an operation after its base, unless it has been built already. `chain` holds the
operations that wait for this one; it never holds an operation twice. -/
def build (source : OperationSource) (chain : List Value) (operation : Value)
    (built : BuiltOperations) : Except BuildFailure BuiltOperations :=
  if Entries.hasKey operation built then .ok built
  else if _ : chain.any (· == operation) then
    .error ⟨.joining (chain ++ [operation]) (.circularBases (chain ++ [operation])), built⟩
  else
    match _ : (source.entry operation).base with
    | none => source.extend operation .empty built
    | some base =>
        if Entries.hasKey base source.operations then
          match source.build (chain ++ [operation]) base built with
          | .error failure => .error failure
          | .ok built =>
              match Entries.find? base built with
              | some found => source.extend operation found.schema built
              | none => source.extend operation .empty built
        else
          let location := source.locate (pointer operation ++ "/base")
          .error ⟨.unknownBase operation base location, built⟩
termination_by (source.idle chain).length
decreasing_by exact idle_lt ‹_› ‹_›

/-- Builds every operation, in the order of declaration as far as bases allow. -/
def buildAll (source : OperationSource) : Except BuildFailure BuiltOperations :=
  source.operations.foldlM
    (fun built (operation, _) => source.build [] operation built) []

/-- The schemas in the order of declaration. -/
def inDeclaredOrder (source : OperationSource) (built : BuiltOperations) :
    List (Value × Schema) :=
  source.operations.filterMap fun (operation, _) =>
    (Entries.find? operation built).map fun found => (operation, found.schema)

/-- The schemas of all operations in the order of declaration. -/
def schemas (source : OperationSource) : Except LoadError (List (Value × Schema)) :=
  match source.buildAll with
  | .ok built => .ok (source.inDeclaredOrder built)
  | .error failure => .error failure.error

end OperationSource

end QueryOptions
